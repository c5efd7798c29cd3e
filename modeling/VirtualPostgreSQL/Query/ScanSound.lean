import Mathlib.Data.List.Basic
import VirtualPostgreSQL.Machinery.Outcome
import VirtualPostgreSQL.Query.LexCut
import VirtualPostgreSQL.Query.ScanAgreement

/-!
# Query/ScanSound — what an accepted query source is to PostgreSQL

An accepted text must be one read-only statement to PostgreSQL's own lexer (`ReadOnly`).  The scan
keeps the words it has read in an invariant, `WordsRead`; it reads the words PostgreSQL reads as
long as the tokens are clean, and stops at the semicolon PostgreSQL stops at
(`scan_simulates_lexer`).  So an accepted text is read-only where the tokens of its first statement
are clean and no INTO stands before the first SELECT.
-/

namespace Vps

open Machinery

/-! ## Read-only statements -/

/-- A word of the statement, in lower case. -/
def PgToken.keyword : PgToken → Option (List UInt8)
  | .word text => some (text.map toLower)
  | _ => none

/-- The words of a statement. -/
def keywords (tokens : List PgToken) : List (List UInt8) := tokens.filterMap PgToken.keyword

/-- The row-locking clauses of SELECT. -/
def lockingClauses : List (List (List UInt8)) :=
  [["for", "update"], ["for", "no", "key", "update"], ["for", "share"], ["for", "key", "share"]].map
    (·.map ascii)

/-- **One read-only statement**, by its tokens. -/
structure ReadOnly (tokens : List PgToken) : Prop where
  closed : ∀ token ∈ tokens, token.isOpen = false
  noSemicolon : .semicolon ∉ tokens
  noParameter : .parameter ∉ tokens
  first : (keywords tokens).head? = some (ascii "select") ∨
    (keywords tokens).head? = some (ascii "with")
  notForbidden : ∀ word ∈ keywords tokens, word ∉ queryForbiddenWords
  noInto : ascii "into" ∉ keywords tokens
  noLocking : ∀ clause ∈ lockingClauses, ¬ clause.map some <:+: tokens.map PgToken.keyword

/-! ## The words the scanner has read -/

/-- What the scanner knows of the words it has read, the newest first and in lower case. -/
structure WordsRead (s : ScanState) (words : List (List UInt8)) : Prop where
  previous : s.previous.text.map toLower = words.headD []
  previousPrevious : s.previousPrevious.text.map toLower = words.tail.headD []
  sawWord : s.sawWord = !words.isEmpty
  sawSelect : s.sawSelect = words.elem (ascii "select")
  first : ∀ word, words.getLast? = some word → word = ascii "select" ∨ word = ascii "with"
  notForbidden : ∀ word ∈ words, word ∉ queryForbiddenWords
  into : words.Pairwise fun newer older => newer = ascii "into" → older ≠ ascii "select"
  locking : ∀ clause ∈ lockingClauses, ¬ clause.reverse <:+: words

/-- Only the words and the flags count. -/
theorem WordsRead.of_eq {s t : ScanState} {words : List (List UInt8)} (h : WordsRead s words)
    (hprevious : t.previous = s.previous) (hprevious2 : t.previousPrevious = s.previousPrevious)
    (hword : t.sawWord = s.sawWord) (hselect : t.sawSelect = s.sawSelect) : WordsRead t words :=
  ⟨hprevious ▸ h.previous, hprevious2 ▸ h.previousPrevious, hword ▸ h.sawWord,
    hselect ▸ h.sawSelect, h.first, h.notForbidden, h.into, h.locking⟩

/-- The scanner begins with no word. -/
theorem wordsRead_scanInit (total : ℕ) : WordsRead (scanInit total) [] where
  previous := rfl
  previousPrevious := rfl
  sawWord := rfl
  sawSelect := rfl
  first := by simp
  notForbidden := by simp
  into := .nil
  locking := by decide

/-- The first word that passes is noted, and SELECT or WITH. -/
theorem scanRoot_ok {s s' : ScanState} {word : QueryWord} (h : scanRoot s word = .ok s') :
    s' = { s with sawWord := true, root := s'.root, sawSelect := s'.sawSelect } ∧
      s'.sawSelect = (s.sawSelect || queryWordEqual word.text (ascii "select")) ∧
      (s.sawWord = false → queryWordEqual word.text (ascii "select") ∨
        queryWordEqual word.text (ascii "with")) := by
  unfold scanRoot at h
  cases hword : s.sawWord <;> cases hselect : queryWordEqual word.text (ascii "select") <;>
    simp only [hword, hselect, Bool.not_true, Bool.not_false, if_true, Bool.false_eq_true,
      if_false] at h
  · split at h
    · rename_i hwith
      obtain rfl := Except.ok.inj h
      simp [hwith]
    · cases h
  all_goals
    obtain rfl := Except.ok.inj h
    simp [← hword]

/-- **A word that passes is not forbidden** and completes no locking clause. -/
theorem scanWordAllowed_ok {s s' : ScanState} {word : QueryWord}
    (h : scanWordAllowed s word = .ok s') :
    scanLocking s word.text = false ∧ queryForbiddenWord word.text = false ∧
      (s.sawSelect && queryWordEqual word.text (ascii "into")) = false ∧
      scanLockingNoKey s word.text = false ∧
      s' = { s with previousPrevious := s.previous, previous := word } := by
  unfold scanWordAllowed at h
  split_ifs at h
  all_goals simp_all

/-- A word that is accepted, with what was checked of it. -/
theorem scanWord_ok {s s' : ScanState} {text : List UInt8} (h : scanWord s text = .ok s') :
    s'.previous.text = text ∧ s'.previousPrevious = s.previous ∧ s'.sawWord = true ∧
      s'.sawSelect = (s.sawSelect || queryWordEqual text (ascii "select")) ∧
      (s.sawWord = false → queryWordEqual text (ascii "select") ∨
        queryWordEqual text (ascii "with")) ∧
      scanLocking s text = false ∧ queryForbiddenWord text = false ∧
      (s.sawSelect && queryWordEqual text (ascii "into")) = false ∧
      s'.offset = s.offset + text.length ∧ s'.terminal = s.terminal ∧
      s'.statementLength = s.statementLength := by
  unfold scanWord at h
  split at h
  · cases h
  obtain ⟨s₁, hroot, hallowed⟩ := ok_of_bind h
  obtain ⟨hs₁, hselect, hfirst⟩ := scanRoot_ok hroot
  obtain ⟨hlocking, hforbidden, hinto, -, rfl⟩ := scanWordAllowed_ok hallowed
  rw [hs₁] at hlocking
  refine ⟨rfl, ?_, ?_, hselect, hfirst, hlocking, hforbidden, ?_, ?_, ?_, ?_⟩
  · rw [hs₁]
  · rw [hs₁]
  · cases hs : s.sawSelect with
    | false => rfl
    | true => simpa [hselect, hs] using hinto
  all_goals rw [hs₁]

/-- A word that may be read next completes no locking clause. -/
theorem not_prefix_of_scanLocking {s : ScanState} {words : List (List UInt8)} {text : List UInt8}
    (h : WordsRead s words) (hlocking : scanLocking s text = false)
    (hforbidden : text.map toLower ∉ queryForbiddenWords) :
    ∀ clause ∈ lockingClauses, ¬ clause.reverse <+: text.map toLower :: words := by
  have hupdate : ascii "update" ∈ queryForbiddenWords := by decide
  simp only [scanLocking, queryWordEqual, h.previous, h.previousPrevious, Bool.or_eq_false_iff,
    Bool.and_eq_false_iff, beq_eq_false_iff_ne] at hlocking
  simp only [lockingClauses, List.map_cons, List.map_nil, List.mem_cons, List.not_mem_nil, or_false,
    forall_eq_or_imp, forall_eq, List.reverse_cons, List.reverse_nil, List.nil_append,
    List.cons_append, List.cons_prefix_cons, not_and]
  refine ⟨fun htext => absurd (htext ▸ hupdate) hforbidden,
    fun htext => absurd (htext ▸ hupdate) hforbidden, ?_, ?_⟩
  · rintro htext ⟨rest, rfl⟩
    simp [← htext] at hlocking
  · rintro htext ⟨rest, rfl⟩
    simp [← htext] at hlocking

/-- **A word keeps the record of the words.** -/
theorem WordsRead.scanWord {s s' : ScanState} {words : List (List UInt8)} {text : List UInt8}
    (h : WordsRead s words) (hok : scanWord s text = .ok s') :
    WordsRead s' (text.map toLower :: words) := by
  obtain ⟨hprevious, hprevious2, hword, hselect, hfirst, hlocking, hforbidden, hinto, -⟩ :=
    scanWord_ok hok
  have hallowed : text.map toLower ∉ queryForbiddenWords := by
    simp only [queryForbiddenWord, queryWordEqual, List.any_eq_false, beq_iff_eq] at hforbidden
    exact fun hmem => hforbidden _ hmem rfl
  refine ⟨by rw [hprevious]; rfl, by rw [hprevious2]; exact h.previous, hword, ?_, ?_, ?_, ?_, ?_⟩
  · rw [hselect, h.sawSelect, Bool.or_comm, List.elem_cons, queryWordEqual, BEq.comm]
    cases ascii "select" == text.map toLower <;> rfl
  · cases words with
    | nil =>
      have := hfirst h.sawWord
      simp only [List.getLast?_singleton, Option.some.injEq, forall_eq']
      simpa [queryWordEqual] using this
    | cons word words =>
      rw [List.getLast?_cons_cons]
      exact h.first
  · exact List.forall_mem_cons.2 ⟨hallowed, h.notForbidden⟩
  · refine List.pairwise_cons.2 ⟨fun word hmem htext hselected => ?_, h.into⟩
    subst hselected
    have hseen : s.sawSelect := by rw [h.sawSelect]; exact List.elem_eq_true_of_mem hmem
    simp [hseen, queryWordEqual, htext] at hinto
  · intro clause hclause
    rw [List.infix_cons_iff, not_or]
    exact ⟨not_prefix_of_scanLocking h hlocking hallowed clause hclause, h.locking clause hclause⟩

/-! ## One round of the loop -/

/-- A bracket moves the depth only. -/
theorem scanNesting_ok {s s' : ScanState} {byte : UInt8} (h : scanNesting s byte = .ok s') :
    s' = { s with depth := s'.depth, maximumNesting := s'.maximumNesting } := by
  unfold scanNesting at h
  split_ifs at h
  all_goals cases h
  all_goals rfl

theorem scanOther_ok {s s' : ScanState} {byte : UInt8} (h : scanOther s byte = .ok s') :
    s' = { s with
      depth := s'.depth
      maximumNesting := s'.maximumNesting
      offset := s.offset + 1
      tokenCount := s'.tokenCount
      normalizedHash := s'.normalizedHash } := by
  obtain ⟨s₁, hnesting, h⟩ := ok_of_bind h
  have hs₁ := scanNesting_ok hnesting
  split at h
  · cases h
  · obtain rfl := Except.ok.inj h
    rw [hs₁]

/-- What a round that is not stopped does to what the result depends on. -/
theorem scanLexeme_ok {total : ℕ} {s s' : ScanState} {lexeme : QueryLexeme} {chunk : List UInt8}
    {words : List (List UInt8)} (hs : s.terminal = false) (h : WordsRead s words)
    (hok : scanLexeme total s lexeme chunk = .ok s') (hsemi : lexeme ≠ .semicolon)
    (hchunk : ∀ n, lexeme = .word n → chunk.length = n) :
    lexeme.passes ∧ s'.offset = s.offset + lexeme.length ∧ s'.terminal = false ∧
      s'.statementLength = s.statementLength ∧
      WordsRead s' (((lexeme.letters chunk).map (·.map toLower)).reverse ++ words) := by
  cases lexeme with
  | semicolon => exact absurd rfl hsemi
  | nul | invalidUtf8 | deepComment | openComment => cases hok
  | openQuoted | parameter | openDollar => simp [scanLexeme, hs, scanToken] at hok
  | wide | space | comment =>
    obtain rfl := Except.ok.inj hok
    exact ⟨rfl, rfl, hs, rfl, h.of_eq rfl rfl rfl rfl⟩
  | quoted | dollarQuoted =>
    simp only [scanLexeme, hs, scanToken] at hok
    obtain rfl := Except.ok.inj hok
    exact ⟨rfl, rfl, rfl, rfl, h.of_eq rfl rfl rfl rfl⟩
  | word n =>
    simp only [scanLexeme, hs, scanToken, Bool.false_eq_true, if_false] at hok
    obtain ⟨-, -, -, -, -, -, -, -, hoffset, hterminal, hlength⟩ := scanWord_ok hok
    exact ⟨rfl, by rw [hoffset, hchunk n rfl]; rfl, by rw [hterminal, hs], hlength, h.scanWord hok⟩
  | other =>
    simp only [scanLexeme, hs, scanToken, Bool.false_eq_true, if_false] at hok
    have hs' := scanOther_ok hok
    refine ⟨rfl, by rw [hs']; rfl, by rw [hs', hs], by rw [hs'], ?_⟩
    refine h.of_eq ?_ ?_ ?_ ?_
    all_goals rw [hs']

/-- After the semicolon only blanks and comments pass. -/
theorem scanLexeme_terminal {total : ℕ} {s s' : ScanState} {lexeme : QueryLexeme}
    {chunk : List UInt8} {words : List (List UInt8)} (hs : s.terminal = true)
    (h : WordsRead s words) (hok : scanLexeme total s lexeme chunk = .ok s') :
    s'.terminal = true ∧ s'.statementLength = s.statementLength ∧ WordsRead s' words := by
  cases lexeme with
  | nul | invalidUtf8 | deepComment | openComment => cases hok
  | wide | space | comment =>
    obtain rfl := Except.ok.inj hok
    exact ⟨hs, rfl, h.of_eq rfl rfl rfl rfl⟩
  | _ => simp [scanLexeme, hs] at hok

/-- A scan only succeeds if there was a word. -/
theorem scanFinish_ok {total : ℕ} {s t : ScanState} (h : scanFinish total s = .ok t) :
    t = s ∧ s.sawWord = true := by
  unfold scanFinish at h
  split_ifs at h with hsaw
  simp only [Bool.or_eq_true, Bool.not_eq_true', not_or, Bool.not_eq_false] at hsaw
  exact ⟨(Except.ok.inj h).symm, hsaw.1⟩

/-- Behind the `;` nothing is read but blanks and comments. -/
theorem scanFrom_terminal {total : ℕ} {s t : ScanState} {text : List UInt8} {skip : ℕ}
    {words : List (List UInt8)} (hok : scanFrom total text skip s = .ok t)
    (hs : s.terminal = true) (h : WordsRead s words) :
    t.statementLength = s.statementLength ∧ WordsRead t words := by
  fun_induction scanFrom total text skip s with
  | case1 s =>
    obtain ⟨rfl, -⟩ := scanFinish_ok hok
    exact ⟨rfl, h⟩
  | case2 byte rest skip s ih => exact ih hok hs h
  | case3 => cases hok
  | case4 s byte rest lexeme s₁ hlexeme ih =>
    obtain ⟨hterminal, hlength, hread⟩ := scanLexeme_terminal hs h hlexeme
    obtain ⟨hend, hwords⟩ := ih hok hterminal hread
    exact ⟨hend.trans hlength, hwords⟩

theorem sawWord_of_scanFrom {total : ℕ} {s t : ScanState} {text : List UInt8} {skip : ℕ}
    (hok : scanFrom total text skip s = .ok t) : t.sawWord = true := by
  fun_induction scanFrom total text skip s with
  | case1 s =>
    obtain ⟨rfl, hword⟩ := scanFinish_ok hok
    exact hword
  | case2 byte rest skip s ih => exact ih hok
  | case3 => cases hok
  | case4 s byte rest lexeme s₁ hlexeme ih => exact ih hok

/-! ## The simulation -/

/-- A dollar quote is neither a `;` nor a word. -/
theorem scanDollar_ne (rest : List UInt8) :
    (scanDollar rest).getD .other ≠ .semicolon ∧ ∀ n, (scanDollar rest).getD .other ≠ .word n := by
  unfold scanDollar
  split
  · simp
  · cases dollarDelimiter queryIsTagByte rest with
    | none => simp
    | some delimiter =>
      cases hfind : findDelimiter delimiter (rest.drop (delimiter.length - 1)) <;> simp [hfind]

/-- Neither is a quoted token. -/
theorem scanQuoted_ne (quote : UInt8) (rest : List UInt8) :
    scanQuoted quote rest ≠ .semicolon ∧ ∀ n, scanQuoted quote rest ≠ .word n := by
  unfold scanQuoted
  simp only
  split <;> simp

/-- Neither is a comment. -/
theorem scanComment_ne (rest : List UInt8) :
    scanComment 1 2 rest ≠ .semicolon ∧ ∀ n, scanComment 1 2 rest ≠ .word n := by
  obtain ⟨m, hm⟩ | ⟨m, hm⟩ | ⟨m, hm⟩ := scanComment_cases 1 2 rest <;> simp [hm]

/-- A semicolon is one to the scanner too. -/
theorem byte_of_queryLexeme_semicolon {byte : UInt8} {rest : List UInt8}
    (h : queryLexeme byte rest = .semicolon) : byte = 59 := by
  obtain ⟨-, m, -, hwide⟩ | ⟨-, heq⟩ := queryLexeme_of_passes (by rw [h]; rfl)
  · cases hwide.symm.trans h
  rw [heq] at h
  split_ifs at h
  · exact absurd h (scanComment_ne _).1
  · assumption
  · exact absurd h (scanQuoted_ne _ _).1
  · exact absurd h (scanDollar_ne _).1

/-- A word of the scanner lies within the text. -/
theorem length_of_queryLexeme_word {byte : UInt8} {rest : List UInt8} {n : ℕ}
    (h : queryLexeme byte rest = .word n) : ((byte :: rest).take n).length = n := by
  have hle := (rest.takeWhile_sublist queryIsIdentifierContinue).length_le
  obtain ⟨-, m, -, hwide⟩ | ⟨-, heq⟩ := queryLexeme_of_passes (by rw [h]; rfl)
  · cases hwide.symm.trans h
  rw [heq] at h
  split_ifs at h
  · exact absurd h ((scanComment_ne _).2 n)
  · exact absurd h ((scanQuoted_ne _ _).2 n)
  · exact absurd h ((scanDollar_ne _).2 n)
  · obtain rfl := QueryLexeme.word.inj h
    simpa using hle

/-! ## Words that begin outside ASCII -/

/-- The bytes that continue a word, behind the given number of bytes. -/
def wordTail (text : List UInt8) (skip : ℕ) : List UInt8 := (text.drop skip).takeWhile isIdentCont

/-- Bytes that continue a word and begin none leave the rest of it. -/
theorem wordTail_skip {text : List UInt8} {n : ℕ} (hn : n ≤ text.length)
    (h : ∀ byte ∈ text.take n, isIdentCont byte ∧ isScannedStart byte = false) :
    (wordTail text 0).length = n + (wordTail text n).length ∧
      scannedPart (wordTail text 0) = scannedPart (wordTail text n) ∧
      (wordTail text n).takeWhile (!isScannedStart ·) ⊆
        (wordTail text 0).takeWhile (!isScannedStart ·) := by
  have hsplit : wordTail text 0 = text.take n ++ wordTail text n := by
    have : (text.take n ++ text.drop n).takeWhile isIdentCont = text.take n ++ wordTail text n :=
      List.takeWhile_append_of_pos fun byte hmem => (h byte hmem).1
    rwa [List.take_append_drop] at this
  rw [hsplit]
  refine ⟨by simp [hn], scannedPart_append (fun byte hmem => (h byte hmem).2) _, ?_⟩
  rw [List.takeWhile_append_of_pos fun byte hmem => by simp [(h byte hmem).2]]
  exact List.subset_append_right _ _

/-- **Through the rest of a word**: round by round the scanner comes to its end, with the word that
begins at the first letter in ASCII, if there is one. -/
theorem scanFrom_wordTail {total : ℕ} {text : List UInt8} {skip : ℕ} {s t : ScanState}
    {words : List (List UInt8)} (hs : s.terminal = false) (h : WordsRead s words)
    (hok : scanFrom total text skip s = .ok t)
    (hdollar : ∀ byte ∈ (wordTail text skip).takeWhile (!isScannedStart ·), byte ≠ 36) :
    ∃ s', scanFrom total text (skip + (wordTail text skip).length) s' = .ok t ∧
      s'.terminal = false ∧ s'.statementLength = s.statementLength ∧
      s'.offset = s.offset + (wordTail text skip).length ∧
      WordsRead s' ((scannedPart (wordTail text skip)).toList.map (·.map toLower) ++ words) := by
  induction text generalizing skip s words with
  | nil => exact ⟨s, by simpa [wordTail, scanFrom] using hok, hs, rfl, by simp [wordTail],
      by simpa [wordTail, scannedPart] using h⟩
  | cons byte rest ih =>
    cases skip with
    | succ skip =>
      obtain ⟨s', hrest, hkept⟩ := ih hs h hok hdollar
      refine ⟨s', ?_, hkept⟩
      rw [Nat.add_right_comm]
      exact hrest
    | zero =>
      by_cases hcont : isIdentCont byte
      swap
      · have hnone : wordTail (byte :: rest) 0 = [] := by simp [wordTail, hcont]
        rw [hnone]
        exact ⟨s, hok, hs, rfl, rfl, h⟩
      simp only [scanFrom] at hok
      split at hok
      · cases hok
      rename_i s₁ hlexeme
      have hsemi : queryLexeme byte rest ≠ .semicolon := by
        intro hsemi
        rw [byte_of_queryLexeme_semicolon hsemi] at hcont
        exact absurd hcont (by decide)
      obtain ⟨hpass, hoffset, hterminal, hlength, hread⟩ := scanLexeme_ok hs h hlexeme hsemi
        fun n hn => by rw [hn]; exact length_of_queryLexeme_word hn
      have hfirst : isScannedStart byte ∨ byte ≠ 36 := by
        by_cases hstart : isScannedStart byte
        · exact .inl hstart
        · exact .inr (hdollar byte (by simp [wordTail, hcont, hstart]))
      obtain ⟨hstart, hword⟩ | ⟨n, hfits, hn, hletters, hcovered⟩ :=
        queryLexeme_inWord hpass hcont hfirst
      · have htail : wordTail (byte :: rest) 0 = byte :: rest.takeWhile isIdentCont := by
          simp [wordTail, hcont]
        have htake := List.prefix_iff_eq_take.1 (rest.takeWhile_prefix isIdentCont)
        rw [hword, ← isIdentCont_eq_query] at hread hok hoffset
        rw [htail, scannedPart_of_start hstart, Nat.zero_add]
        refine ⟨s₁, hok, hterminal, hlength, hoffset, ?_⟩
        simpa [QueryLexeme.letters, QueryLexeme.length, ← htake] using hread
      · -- a round that reads no word goes on within this one
        obtain ⟨hlong, hpart, hsubset⟩ := wordTail_skip (Nat.succ_le_succ hfits) hcovered
        rw [hn, hletters] at hread
        rw [hn] at hok hoffset
        obtain ⟨s', hrest, hterminal', hlength', hoffset', hread'⟩ :=
          ih hterminal hread hok fun b hmem => hdollar b (hsubset hmem)
        rw [hlong, hpart, Nat.zero_add, Nat.add_right_comm]
        refine ⟨s', hrest, hterminal', hlength'.trans hlength, ?_, hread'⟩
        rw [hoffset', hoffset, Nat.add_assoc, Nat.add_right_comm n]
        rfl

/-- A step reads something and emits at most one token. -/
def LexStep.Single (step : LexStep) : Prop := 0 < step.length ∧ step.tokens.length ≤ 1

theorem stepQuoted_single (mode : LexMode) (quote : UInt8) (rest : List UInt8) :
    (stepQuoted mode quote rest).Single := by
  simp only [stepQuoted, LexStep.Single]
  cases quotedLength (quote == 39 && mode.escapes) quote rest <;> simp

theorem stepDollar_single (rest : List UInt8) : (stepDollar rest).Single := by
  simp only [stepDollar, LexStep.Single]
  split
  · simp
  · cases hd : dollarDelimiter isTagByte rest with
    | none => simp
    | some delimiter =>
      obtain ⟨tag, post, rfl, -, rfl⟩ := (dollarDelimiter_eq_some_iff isTagByte_dollar).1 hd
      simp only [List.cons_append, List.length_cons]
      split
      · simp
      · exact ⟨Nat.add_pos_left (Nat.mul_pos Nat.two_pos (Nat.succ_pos _)) _, le_rfl⟩

theorem stepWord_single (byte : UInt8) (rest : List UInt8) : (stepWord byte rest).Single := by
  simp only [stepWord, LexStep.Single]
  split <;> simp

/-- **A step of the lexer yields one token at most.** -/
theorem lexStep_single (mode : LexMode) (byte : UInt8) (rest : List UInt8) :
    (lexStep mode byte rest).Single := by
  have hquoted := stepQuoted_single mode byte rest
  have hdollar := stepDollar_single rest
  have hword := stepWord_single byte rest
  unfold lexStep
  split_ifs
  · simp [LexStep.Single]
  · simp [LexStep.Single]
  · cases commentLength 1 rest.tail <;> simp [LexStep.Single]
  all_goals first | assumption | simp [LexStep.Single]

/-- The tokens before the first semicolon. -/
def firstStatement (tokens : List PgToken) : List PgToken := tokens.takeWhile (· != .semicolon)

/-- A token of the first statement is clean. -/
theorem clean_of_firstStatement {tokens tail : List PgToken} (hsingle : tokens.length ≤ 1)
    (h : ∀ token ∈ firstStatement (tokens ++ tail), token.clean) :
    ∀ token ∈ tokens, token.clean := by
  intro token hmem
  obtain rfl : tokens = [token] := by
    obtain ⟨other, rfl⟩ := List.length_eq_one_iff.1
      (Nat.le_antisymm hsingle (List.length_pos_of_mem hmem))
    rw [List.mem_singleton.1 hmem]
  by_cases hsemi : token = .semicolon
  · rw [hsemi]; rfl
  · exact h token (by simp [firstStatement, hsemi])

/-- The first statement goes on over tokens that are no `;`. -/
theorem firstStatement_append {tokens : List PgToken} (h : .semicolon ∉ tokens)
    (tail : List PgToken) :
    firstStatement (tokens ++ tail) = tokens ++ firstStatement tail := by
  refine List.takeWhile_append_of_pos fun token hmem => ?_
  simp only [bne_iff_ne]
  rintro rfl
  exact h hmem

/-- The words the scanner takes from the tokens. -/
def scannedWords (tokens : List PgToken) : List (List UInt8) :=
  (tokens.filterMap PgToken.letters).map (·.map toLower)

/-- **A step of the lexer short of a semicolon**, against the rounds it takes the scanner. -/
theorem scan_simulates_step {total : ℕ} {byte : UInt8} {rest : List UInt8} {mode : LexMode}
    {s t : ScanState} {words : List (List UInt8)} (hs : s.terminal = false) (h : WordsRead s words)
    (hok : scanFrom total (byte :: rest) 0 s = .ok t) (hsemi : queryLexeme byte rest ≠ .semicolon)
    (hclean : ∀ token ∈ (lexStep mode byte rest).tokens, token.clean) :
    ∃ s', scanFrom total rest ((lexStep mode byte rest).length - 1) s' = .ok t ∧
      s'.terminal = false ∧ s'.statementLength = s.statementLength ∧
      s'.offset = s.offset + (lexStep mode byte rest).length ∧
      WordsRead s' ((scannedWords (lexStep mode byte rest).tokens).reverse ++ words) ∧
      ∀ token ∈ (lexStep mode byte rest).tokens,
        token.isOpen = false ∧ token ≠ .parameter ∧ token ≠ .semicolon := by
  by_cases hwide : 128 ≤ byte
  · -- a word that begins outside ASCII takes several rounds
    have htail : wordTail (byte :: rest) 0 = byte :: rest.takeWhile isIdentCont := by
      simp [wordTail, isIdentCont, isIdentStart, hwide]
    rw [lexStep_of_wide hwide] at hclean ⊢
    simp only [List.mem_singleton, forall_eq, PgToken.clean, List.all_eq_true, bne_iff_ne] at hclean
    obtain ⟨s', hrest, hkept⟩ := scanFrom_wordTail hs h hok (by rwa [htail])
    rw [htail, Nat.zero_add] at hrest
    rw [htail] at hkept
    refine ⟨s', hrest, hkept.1, hkept.2.1, hkept.2.2.1, ?_, by simp [PgToken.isOpen]⟩
    have hword := hkept.2.2.2
    cases hpart : scannedPart (byte :: rest.takeWhile isIdentCont) with
    | none => simpa [scannedWords, PgToken.letters, hpart] using hword
    | some part => simpa [scannedWords, PgToken.letters, hpart] using hword
  · simp only [scanFrom] at hok
    split at hok
    · cases hok
    rename_i s₁ hlexeme
    obtain ⟨hpass, hoffset, hterminal, hlength, hread⟩ := scanLexeme_ok hs h hlexeme hsemi
      fun n hn => by rw [hn]; exact length_of_queryLexeme_word hn
    have hagrees := lexStep_agrees (UInt8.not_le.1 hwide) hpass hclean
    rw [← hagrees.length] at hok hoffset
    rw [← hagrees.letters] at hread
    exact ⟨s₁, hok, hterminal, hlength, hoffset, hread, fun token hmem =>
      ⟨hagrees.closed token hmem, fun heq => hagrees.noParameter (heq ▸ hmem),
        fun heq => hsemi (hagrees.semicolon.1 (heq ▸ hmem))⟩⟩

/-- **The scanner reads the first statement as PostgreSQL does**: it stops at the same semicolon,
leaves no token open and has read the same words. -/
theorem scan_simulates_lexer {total : ℕ} {text : List UInt8} {skip : ℕ} {mode : LexMode}
    {s t : ScanState} {words : List (List UInt8)} (hs : s.terminal = false) (h : WordsRead s words)
    (hok : scanFrom total text skip s = .ok t)
    (hclean : ∀ token ∈ firstStatement (lexFrom text skip mode), token.clean) :
    ∃ statement, (statement = text ∧ t.statementLength = s.statementLength ∨
        (∃ suffix, text = statement ++ 59 :: suffix) ∧ skip ≤ statement.length ∧
          t.statementLength + skip = s.offset + statement.length) ∧
      lexFrom statement skip mode = firstStatement (lexFrom text skip mode) ∧
      (∀ token ∈ lexFrom statement skip mode, token.isOpen = false ∧ token ≠ .parameter) ∧
      WordsRead t ((scannedWords (lexFrom statement skip mode)).reverse ++ words) := by
  induction text generalizing skip mode s words with
  | nil =>
    obtain ⟨rfl, -⟩ := scanFinish_ok hok
    exact ⟨[], .inl ⟨rfl, rfl⟩, rfl, by simp [lexFrom], h⟩
  | cons byte rest ih =>
    cases skip with
    | succ skip =>
      obtain ⟨statement, hend, hlex, hplain, hwords⟩ := ih hs h hok hclean
      refine ⟨byte :: statement, ?_, hlex, hplain, hwords⟩
      obtain ⟨rfl, hlength⟩ | ⟨⟨suffix, rfl⟩, hskip, hlength⟩ := hend
      · exact .inl ⟨rfl, hlength⟩
      · exact .inr ⟨⟨suffix, rfl⟩, by simpa using hskip, by simp; omega⟩
    | zero =>
      obtain ⟨hpos, hsingle⟩ := lexStep_single mode byte rest
      simp only [lexFrom] at hclean
      have hstep := clean_of_firstStatement hsingle hclean
      by_cases hsemi : queryLexeme byte rest = .semicolon
      · obtain rfl := byte_of_queryLexeme_semicolon hsemi
        simp only [scanFrom, hsemi, scanLexeme, hs, scanToken, Bool.false_eq_true, if_false] at hok
        obtain ⟨hend, hread⟩ := scanFrom_terminal hok rfl (h.of_eq rfl rfl rfl rfl)
        refine ⟨[], .inr ⟨⟨rest, rfl⟩, le_rfl, by simpa using hend⟩, ?_, by simp [lexFrom], hread⟩
        simp [lexFrom, lexStep, firstStatement, isSpace]
      obtain ⟨s₁, hok, hterminal, hlength, hoffset, hread, hplainStep⟩ :=
        scan_simulates_step hs h hok hsemi hstep
      have hnone : .semicolon ∉ (lexStep mode byte rest).tokens :=
        fun hmem => (hplainStep _ hmem).2.2 rfl
      rw [firstStatement_append hnone] at hclean
      obtain ⟨statement, hend, hlex, hplain, hwords⟩ := ih hterminal hread hok
        fun token hmem => hclean token (List.mem_append_right _ hmem)
      -- the step is the same on the statement alone
      have hcut : lexStep mode byte statement = lexStep mode byte rest := by
        obtain ⟨rfl, -⟩ | ⟨⟨suffix, rfl⟩, hskip, -⟩ := hend
        · rfl
        · exact (lexStep_cut (by omega)).symm
      refine ⟨byte :: statement, ?_, ?_, ?_, ?_⟩
      · obtain ⟨rfl, hend⟩ | ⟨⟨suffix, rfl⟩, hskip, hend⟩ := hend
        · exact .inl ⟨rfl, hend.trans hlength⟩
        · exact .inr ⟨⟨suffix, rfl⟩, Nat.zero_le _, by simp only [List.length_cons]; omega⟩
      all_goals simp only [lexFrom, hcut]
      · rw [hlex, firstStatement_append hnone]
      · intro token hmem
        obtain hmem | hmem := List.mem_append.1 hmem
        · exact ⟨(hplainStep token hmem).1, (hplainStep token hmem).2.1⟩
        · exact hplain token hmem
      · rw [← List.append_assoc, ← List.reverse_append] at hwords
        simpa [scannedWords] using hwords

/-! ## Soundness -/

/-- A word in lower case that the scanner would read whole. -/
def beginsScanned (word : List UInt8) : Bool := word.head?.any isScannedStart

theorem isScannedStart_toLower (byte : UInt8) :
    isScannedStart (toLower byte) = isScannedStart byte :=
  byte_induction (P := fun byte => isScannedStart (toLower byte) = isScannedStart byte) 256
    (by decide +kernel) byte byte.toNat_lt

/-- A word that the scanner can begin is read whole. -/
theorem letters_of_beginsScanned {text : List UInt8} (h : beginsScanned (text.map toLower)) :
    (PgToken.word text).letters = some text := by
  cases text with
  | nil => cases h
  | cons byte tail =>
    refine scannedPart_of_start ?_ tail
    simpa [beginsScanned, isScannedStart_toLower] using h

/-- All forbidden words can be begun… -/
theorem beginsScanned_of_forbidden {word : List UInt8} (h : word ∈ queryForbiddenWords) :
    beginsScanned word := by
  revert word
  decide

/-- …and all words of a locking clause. -/
theorem beginsScanned_of_locking :
    ∀ clause ∈ lockingClauses, ∀ word ∈ clause, beginsScanned word := by
  decide

theorem scannedWords_cons (token : PgToken) (tokens : List PgToken) :
    scannedWords (token :: tokens) =
      (token.letters.toList.map (·.map toLower)) ++ scannedWords tokens := by
  cases h : token.letters <;> simp [scannedWords, h]

/-- The words that begin in ASCII are among those the scanner reads. -/
theorem keywords_sublist (tokens : List PgToken) :
    ((keywords tokens).filter beginsScanned).Sublist (scannedWords tokens) := by
  induction tokens with
  | nil => exact .slnil
  | cons token tokens ih =>
    rw [scannedWords_cons]
    cases token with
    | word text =>
      change ((text.map toLower :: keywords tokens).filter beginsScanned).Sublist _
      by_cases hbegins : beginsScanned (text.map toLower)
      · rw [List.filter_cons_of_pos hbegins, letters_of_beginsScanned hbegins]
        exact ih.cons_cons (text.map toLower)
      · rw [List.filter_cons_of_neg hbegins]
        exact ih.trans (List.sublist_append_right _ _)
    | _ => exact ih.trans (List.sublist_append_right _ _)

/-- A marker is no longer than a letter, so the first long word is a word to PostgreSQL too. -/
theorem head?_keywords {tokens : List PgToken} {word : List UInt8} (hlong : 1 < word.length)
    (hbegins : (keywords tokens).head?.all beginsScanned)
    (h : (scannedWords tokens).head? = some word) : (keywords tokens).head? = some word := by
  induction tokens with
  | nil => cases h
  | cons token tokens ih =>
    rw [scannedWords_cons] at h
    cases token with
    | word text =>
      rw [letters_of_beginsScanned hbegins] at h
      exact h
    | marker letter =>
      obtain rfl : [toLower letter] = word := Option.some.inj h
      simp at hlong
    | _ => exact ih hbegins h

/-- **A clause of the server's keywords is one of the scanner's words.** -/
theorem scannedWords_eq_of_map_keyword {tokens : List PgToken} {clause : List (List UInt8)}
    (hclause : ∀ word ∈ clause, beginsScanned word)
    (h : tokens.map PgToken.keyword = clause.map some) : scannedWords tokens = clause := by
  induction tokens generalizing clause with
  | nil => cases clause <;> simp_all [scannedWords]
  | cons token tokens ih =>
    cases clause with
    | nil => simp at h
    | cons word clause =>
      obtain ⟨hword, hrest⟩ := List.cons.inj h
      obtain ⟨hbegins, hclause⟩ := List.forall_mem_cons.1 hclause
      cases token with
      | word text =>
        have hword : text.map toLower = word := Option.some.inj hword
        rw [scannedWords_cons, letters_of_beginsScanned (hword ▸ hbegins),
          ih hclause hrest, ← hword]
        rfl
      | _ => simp [PgToken.keyword] at hword

/-- So is one that stands somewhere in the statement. -/
theorem infix_scannedWords {tokens : List PgToken} {clause : List (List UInt8)}
    (hclause : ∀ word ∈ clause, beginsScanned word)
    (h : clause.map some <:+: tokens.map PgToken.keyword) : clause <:+: scannedWords tokens := by
  obtain ⟨before, after, h⟩ := h
  obtain ⟨initial, last, rfl, hinitial, -⟩ := List.map_eq_append_iff.1 h.symm
  obtain ⟨first, middle, rfl, -, hmiddle⟩ := List.map_eq_append_iff.1 hinitial
  refine ⟨scannedWords first, scannedWords last, ?_⟩
  rw [← scannedWords_eq_of_map_keyword hclause hmiddle]
  simp [scannedWords]

/-- **When the scanner reads a text right**: the tokens of the first statement are clean, its first
word begins in ASCII, and no INTO stands before the first SELECT. -/
def ScannerReads (query : List UInt8) : Prop :=
  (∀ token ∈ firstStatement (pgLex query), token.clean) ∧
    (keywords (firstStatement (pgLex query))).head?.all beginsScanned ∧
    ascii "into" ∉ (keywords (firstStatement (pgLex query))).takeWhile (· != ascii "select")

/-- A query has finitely many tokens, so it can be decided. -/
instance (query : List UInt8) : Decidable (ScannerReads query) :=
  inferInstanceAs (Decidable (_ ∧ _))

/-- After a SELECT the scanner lets no INTO through. -/
theorem into_notMem {words : List (List UInt8)}
    (hpairwise : words.Pairwise fun older newer => newer = ascii "into" → older ≠ ascii "select")
    (hbefore : ascii "into" ∉ words.takeWhile (· != ascii "select")) : ascii "into" ∉ words := by
  induction words with
  | nil => simp
  | cons word words ih =>
    obtain ⟨hword, hwords⟩ := List.pairwise_cons.1 hpairwise
    by_cases hselect : word = ascii "select"
    · rw [List.mem_cons, not_or]
      refine ⟨?_, fun hmem => hword _ hmem rfl hselect⟩
      rw [hselect]
      decide
    · simp only [List.takeWhile_cons, bne_iff_ne, ne_eq, hselect, not_false_eq_true, if_true,
        List.mem_cons, not_or] at hbefore
      exact List.not_mem_cons_of_ne_of_not_mem hbefore.1 (ih hwords hbefore.2)

/-- **An accepted query source is one read-only statement to PostgreSQL**, where the scanner reads
it right. -/
theorem querySourceScan_readOnly {query : List UInt8} {s : ScanState}
    (hok : querySourceScan query = .ok s) (hreads : ScannerReads query) :
    ReadOnly (pgLex (query.take s.statementLength)) := by
  unfold querySourceScan at hok
  split_ifs at hok
  obtain ⟨statement, hend, hlex, hplain, hread⟩ :=
    scan_simulates_lexer rfl (wordsRead_scanInit _) hok hreads.1
  have hstatement : query.take s.statementLength = statement := by
    obtain ⟨rfl, hlength⟩ | ⟨⟨suffix, rfl⟩, -, hlength⟩ := hend
    · rw [hlength]
      exact List.take_length
    · have hlength : s.statementLength = statement.length := by simpa [scanInit] using hlength
      rw [hlength, List.take_left]
  rw [hstatement]
  change pgLex statement = firstStatement (pgLex query) at hlex
  rw [List.append_nil] at hread
  change WordsRead s (scannedWords (pgLex statement)).reverse at hread
  have hsublist := keywords_sublist (pgLex statement)
  refine ⟨fun token hmem => (hplain token hmem).1, ?_, fun hmem => (hplain _ hmem).2 rfl, ?_,
    fun word hmem hforbidden => ?_, ?_, ?_⟩
  · rw [hlex]
    exact fun hmem => by simpa using List.mem_takeWhile_imp hmem
  · have hword := hread.sawWord.symm.trans (sawWord_of_scanFrom hok)
    obtain ⟨word, words, hwords⟩ : ∃ word words, scannedWords (pgLex statement) = word :: words :=
      List.exists_cons_of_ne_nil (by rintro hnil; simp [hnil] at hword)
    have hhead : (scannedWords (pgLex statement)).head? = some word := by rw [hwords]; rfl
    have hbegins : (keywords (pgLex statement)).head?.all beginsScanned := by
      rw [hlex]
      exact hreads.2.1
    obtain rfl | rfl := hread.first word (by rw [List.getLast?_reverse, hhead])
    · exact .inl (head?_keywords (by decide) hbegins hhead)
    · exact .inr (head?_keywords (by decide) hbegins hhead)
  · have hscanned :=
      hsublist.subset (List.mem_filter.2 ⟨hmem, beginsScanned_of_forbidden hforbidden⟩)
    exact hread.notForbidden word (List.mem_reverse.2 hscanned) hforbidden
  · have hpairwise := List.pairwise_filter.1 ((List.pairwise_reverse.1 hread.into).sublist hsublist)
    refine into_notMem (hpairwise.imp fun horder hinto hselect => ?_)
      (by rw [hlex]; exact hreads.2.2)
    subst hinto hselect
    exact horder (by decide) (by decide) rfl rfl
  · intro clause hclause hinfix
    have hbegins := beginsScanned_of_locking clause hclause
    exact hread.locking clause hclause (List.reverse_infix.2 (infix_scannedWords hbegins hinfix))

/-- An escaped apostrophe and a semicolon in a constant, and a final semicolon. -/
theorem querySourceScan_readOnly_escapes :
    ∃ s, querySourceScan (ascii "SELECT a FROM t WHERE b = E'it\\'s; ' ;-- x") = .ok s ∧
      ReadOnly (pgLex ((ascii "SELECT a FROM t WHERE b = E'it\\'s; ' ;-- x").take
        s.statementLength)) := by
  obtain ⟨s, hok⟩ : ∃ s, querySourceScan (ascii "SELECT a FROM t WHERE b = E'it\\'s; ' ;-- x") =
    .ok s := ⟨_, rfl⟩
  exact ⟨s, hok, querySourceScan_readOnly hok (by decide)⟩

/-- **The gate lets two statements through**: to PostgreSQL the backslash of a plain constant
escapes nothing, so the constant ends before the semicolon the scanner takes for a part of it. -/
theorem querySourceScan_accepts_delete :
    ∃ s, querySourceScan (ascii "SELECT 'a\\'; DELETE FROM t; --'") = .ok s ∧
      ¬ ReadOnly (pgLex ((ascii "SELECT 'a\\'; DELETE FROM t; --'").take s.statementLength)) := by
  refine ⟨_, rfl, fun h => h.noSemicolon ?_⟩
  decide

/-- Every part of `ScannerReads` is needed: a word with a letter outside ASCII and then a dollar
sign, such a letter at the first word, a dollar tag with one, a quote that is never closed, and an
INTO before the first SELECT. -/
theorem querySourceScan_misreads :
    let wide : List UInt8 := [0xc3, 0xa9]
    ∀ query ∈ [ascii "SELECT " ++ wide ++ ascii "$a$; DELETE FROM t; $a$", wide ++ ascii "SELECT 1",
        ascii "SELECT $" ++ wide ++ ascii "$ ' $" ++ wide ++ ascii "$; DELETE FROM t; --'",
        ascii "SELECT '", ascii "WITH a INTO b SELECT 1"],
      ∃ s, querySourceScan query = .ok s ∧ ¬ ReadOnly (pgLex (query.take s.statementLength)) := by
  simp only [List.mem_cons, List.not_mem_nil, or_false, forall_eq_or_imp, forall_eq]
  refine ⟨⟨_, rfl, fun h => h.noSemicolon ?_⟩, ⟨_, rfl, fun h => absurd h.first ?_⟩,
    ⟨_, rfl, fun h => h.noSemicolon ?_⟩, ⟨_, rfl, fun h => ?_⟩, ⟨_, rfl, fun h => h.noInto ?_⟩⟩
  · decide
  · decide
  · decide
  · exact absurd (h.closed (.openLiteral false [39]) (by decide)) (by decide)
  · decide

end Vps
