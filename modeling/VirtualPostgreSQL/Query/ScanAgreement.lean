import Mathlib.Data.List.Basic
import VirtualPostgreSQL.Machinery.Utf8
import VirtualPostgreSQL.Query.Lexer
import VirtualPostgreSQL.Query.Scan

/-!
# Query/ScanAgreement — where the scanner and PostgreSQL's lexer read alike

One step of PostgreSQL's lexer against one round of the scanner's loop, at the same byte.  They
cover the same bytes and see the same words unless the lexer's token is one the scanner misreads
(`PgToken.clean`): a plain constant with an odd run of backslashes before an apostrophe, a word with
a dollar sign before its first letter in ASCII, a dollar tag with letters outside ASCII, or a quote
that is never closed and ends with its own mark.

A word that begins outside ASCII takes the scanner several rounds: it passes over the characters
and begins its own word at the first letter in ASCII, if there is one (`scannedPart`).
-/

namespace Vps

open Machinery

/-! ## Tokens the scanner reads right -/

/-- Whether the token runs to the end of the text without its terminator. -/
def PgToken.isOpen : PgToken → Bool
  | .openLiteral .. | .openIdentifier _ | .openDollar _ | .openComment => true
  | _ => false

/-- No odd run of backslashes stands directly before an apostrophe; `odd` tells whether such a run
ends here. -/
def evenRuns : Bool → List UInt8 → Bool
  | _, [] => true
  | odd, byte :: rest => !(odd && byte == 39) && evenRuns (byte == 92 && !odd) rest

/-- A letter at which the scanner begins a word. -/
def isScannedStart (byte : UInt8) : Bool := byte < 128 && isIdentStart byte

/-- What the scanner takes for a word, of a word of PostgreSQL's. -/
def scannedPart (text : List UInt8) : Option (List UInt8) :=
  let part := text.dropWhile (!isScannedStart ·)
  if part = [] then none else some part

/-- **The tokens that the scanner reads as PostgreSQL does.** -/
def PgToken.clean : PgToken → Bool
  -- at a dollar sign the scanner would look for a parameter or a delimiter
  | .word text => (text.takeWhile (!isScannedStart ·)).all (· != 36)
  | .literal escapes text => escapes || evenRuns false text
  | .openLiteral escapes text => (escapes || evenRuns false text) && text.getLast? != some 39
  | .openIdentifier text => text.getLast? != some 34
  | .dollar delimiter | .openDollar delimiter => delimiter.all (· < 128)
  | _ => true

/-- The letters the scanner takes for a word. -/
def PgToken.letters : PgToken → Option (List UInt8)
  | .word text => scannedPart text
  | .marker letter => some [letter]
  | _ => none

/-- A word that begins in ASCII is read whole. -/
theorem scannedPart_of_start {byte : UInt8} (h : isScannedStart byte) (tail : List UInt8) :
    scannedPart (byte :: tail) = some (byte :: tail) := by
  simp [scannedPart, h]

/-- What begins no word is passed over. -/
theorem scannedPart_append {skipped : List UInt8}
    (h : ∀ byte ∈ skipped, isScannedStart byte = false)
    (tail : List UInt8) : scannedPart (skipped ++ tail) = scannedPart tail := by
  have hskipped : ∀ byte ∈ skipped, (!isScannedStart byte) = true := by simpa using h
  simp only [scannedPart, List.dropWhile_append_of_pos hskipped]

/-! ## Quotes -/

/-- The scanner reads a quote as a constant with escapes, and to the end if it is never closed. -/
theorem scanQuotedLength_eq (quote : UInt8) (text : List UInt8) :
    scanQuotedLength quote text = (quotedLength (quote == 39) quote text).getD text.length := by
  fun_induction scanQuotedLength quote text with
  | case1 => rfl
  | case2 byte => by_cases h : byte = quote <;> simp [quotedLength, h]
  | case3 rest ih =>
    rw [quotedLength, if_pos rfl, if_pos rfl, ih]
    cases quotedLength (quote == 39) quote rest <;> simp
  | case4 next rest hnext => rw [quotedLength, if_pos rfl, if_neg hnext, Option.getD_some]
  | case5 byte next rest hbyte hescape ih =>
    rw [quotedLength, if_neg hbyte, if_pos hescape, ih]
    cases quotedLength (quote == 39) quote rest <;> simp
  | case6 byte next rest hbyte hescape ih =>
    rw [quotedLength, if_neg hbyte, if_neg hescape, ih]
    cases quotedLength (quote == 39) quote (next :: rest) <;> simp

theorem quotedLength_cons_of_ne {quote byte : UInt8} (rest : List UInt8) (h : byte ≠ quote) :
    quotedLength false quote (byte :: rest) = (quotedLength false quote rest).map (· + 1) := by
  cases rest with
  | nil => simp [quotedLength, h]
  | cons next rest => simp [quotedLength, h]

/-- Where every run of backslashes before an apostrophe is even, escapes change nothing. -/
theorem quotedLength_escapes_eq {text : List UInt8}
    (h : evenRuns false (text.take ((quotedLength false 39 text).getD text.length))) :
    quotedLength true 39 text = quotedLength false 39 text := by
  fun_induction quotedLength true 39 text with
  | case1 => rfl
  | case2 => rfl
  | case3 byte hbyte => simp [quotedLength, hbyte]
  | case4 rest ih =>
    rw [quotedLength, if_pos rfl, if_pos rfl] at h ⊢
    rw [ih]
    cases hq : quotedLength false 39 rest <;> simpa [hq, evenRuns] using h
  | case5 next rest hnext => rw [quotedLength, if_pos rfl, if_neg hnext]
  | case6 byte next rest hbyte hescape ih =>
    obtain rfl : byte = 92 := by simpa using hescape
    rw [quotedLength_cons_of_ne _ hbyte] at h ⊢
    -- the byte after a backslash is no apostrophe, so both readings pass over it
    have hnext : next ≠ 39 := by
      rintro rfl
      cases hq : quotedLength false 39 (39 :: rest) with
      | none => simp [hq, evenRuns] at h
      | some n =>
        have hn : n ≠ 0 := by
          rintro rfl
          cases rest with
          | nil => simp [quotedLength] at hq
          | cons c rest => by_cases hc : c = 39 <;> simp [quotedLength, hc] at hq
        obtain ⟨m, rfl⟩ := Nat.exists_eq_succ_of_ne_zero hn
        simp [hq, evenRuns] at h
    rw [quotedLength_cons_of_ne _ hnext] at h ⊢
    rw [ih]
    · cases quotedLength false 39 rest <;> simp
    · cases hq : quotedLength false 39 rest <;> simpa [hq, evenRuns, hnext] using h
  | case7 byte next rest hbyte hescape ih =>
    have hslash : (byte == 92) = false := by simpa using hescape
    rw [quotedLength_cons_of_ne _ hbyte] at h ⊢
    rw [ih]
    cases hq : quotedLength false 39 (next :: rest) <;> simpa [hq, evenRuns, hslash] using h

/-! ## Comments -/

/-- A comment that the scanner accepts ends where PostgreSQL ends it. -/
theorem commentLength_of_scanComment {depth consumed m : ℕ} {text : List UInt8}
    (h : scanComment depth consumed text = .comment m) :
    ∃ n, commentLength depth text = some n ∧ m = consumed + n := by
  fun_induction scanComment depth consumed text with
  | case1 => exact ⟨0, by rw [commentLength], by simpa using h.symm⟩
  | case2 => simp at h
  | case3 => simp at h
  | case4 => simp at h
  | case5 depth consumed byte next rest hopen hdeep ih =>
    obtain ⟨n, hn, rfl⟩ := ih h
    exact ⟨n + 2, by rw [commentLength, if_pos hopen, hn]; rfl, by omega⟩
  | case6 depth consumed byte next rest hopen hclose ih =>
    obtain ⟨n, hn, rfl⟩ := ih h
    exact ⟨n + 2, by rw [commentLength, if_neg hopen, if_pos hclose, hn]; rfl, by omega⟩
  | case7 depth consumed byte next rest hopen hclose ih =>
    obtain ⟨n, hn, rfl⟩ := ih h
    exact ⟨n + 1, by rw [commentLength, if_neg hopen, if_neg hclose, hn]; rfl, by omega⟩

/-- The loop over a comment ends in one of three ways. -/
theorem scanComment_cases (depth consumed : ℕ) (text : List UInt8) :
    (∃ m, scanComment depth consumed text = .comment m) ∨
    (∃ m, scanComment depth consumed text = .deepComment m) ∨
    ∃ m, scanComment depth consumed text = .openComment m := by
  fun_induction scanComment depth consumed text <;> simp_all

/-! ## Dollar quotes -/

theorem queryIsTagByte_dollar : queryIsTagByte 36 = false := by decide

theorem isTagByte_of_query {byte : UInt8} (h : queryIsTagByte byte) : isTagByte byte := by
  simp only [queryIsTagByte, isAlnum, Bool.or_eq_true] at h
  simp only [isTagByte, isIdentStart, Bool.or_eq_true]
  tauto

theorem queryIsTagByte_of_ascii {byte : UInt8} (h : isTagByte byte) (hb : byte < 128) :
    queryIsTagByte byte := by
  have hwide : ¬ (128 : UInt8) ≤ byte := UInt8.not_le.2 hb
  simp only [isTagByte, isIdentStart, Bool.or_eq_true, decide_eq_true_eq] at h
  simp only [queryIsTagByte, isAlnum, Bool.or_eq_true]
  tauto

/-- The scanner and PostgreSQL find the same delimiter, unless PostgreSQL's has letters outside
ASCII. -/
theorem dollarDelimiter_agrees {text : List UInt8}
    (h : ∀ delimiter, dollarDelimiter isTagByte text = some delimiter →
      ∀ byte ∈ delimiter, byte < 128) :
    dollarDelimiter queryIsTagByte text = dollarDelimiter isTagByte text := by
  ext delimiter
  constructor
  · intro hscan
    obtain ⟨tag, post, rfl, htag, rfl⟩ :=
      (dollarDelimiter_eq_some_iff queryIsTagByte_dollar).1 hscan
    exact (dollarDelimiter_eq_some_iff isTagByte_dollar).2
      ⟨tag, post, rfl, fun byte hb => isTagByte_of_query (htag byte hb), rfl⟩
  · intro hlex
    have hascii := h _ hlex
    obtain ⟨tag, post, rfl, htag, rfl⟩ := (dollarDelimiter_eq_some_iff isTagByte_dollar).1 hlex
    refine (dollarDelimiter_eq_some_iff queryIsTagByte_dollar).2
      ⟨tag, post, rfl, fun byte hb => queryIsTagByte_of_ascii (htag byte hb) (hascii byte ?_), rfl⟩
    simp [hb]

/-! ## Words -/

theorem isIdentCont_eq_query : isIdentCont = queryIsIdentifierContinue := by
  ext byte
  simp only [isIdentCont, isIdentStart, queryIsIdentifierContinue, isAlnum]
  ac_rfl

/-- A marker is followed by a byte that continues no word. -/
theorem takeWhile_of_markerMode {byte : UInt8} {rest : List UInt8} {mode : LexMode}
    (h : markerMode byte rest = some mode) : rest.takeWhile queryIsIdentifierContinue = [] := by
  unfold markerMode at h
  split at h
  · rfl
  · rfl
  · cases h

theorem ne_of_wide {byte letter : UInt8} (h : 128 ≤ byte) (hletter : letter < 128) :
    byte ≠ letter := by
  rintro rfl
  exact absurd h (UInt8.not_le.2 hletter)

theorem not_le_of_wide {byte letter : UInt8} (h : 128 ≤ byte) (hletter : letter < 128) :
    ¬ byte ≤ letter :=
  fun hle => absurd (UInt8.le_trans h hle) (UInt8.not_le.2 hletter)

/-- A letter outside ASCII marks no constant. -/
theorem markerMode_of_wide {byte : UInt8} (h : 128 ≤ byte) (rest : List UInt8) :
    markerMode byte rest = none := by
  have hlower : toLower byte = byte := by simp [toLower, not_le_of_wide h (show 90 < 128 by decide)]
  unfold markerMode
  rw [hlower]
  split
  · simp [ne_of_wide h (show 101 < 128 by decide), ne_of_wide h (show 98 < 128 by decide),
      ne_of_wide h (show 120 < 128 by decide), ne_of_wide h (show 110 < 128 by decide)]
  · simp [ne_of_wide h (show 117 < 128 by decide)]
  · rfl

/-- A letter outside ASCII starts a word. -/
theorem lexStep_of_wide {byte : UInt8} (h : 128 ≤ byte) (mode : LexMode) (rest : List UInt8) :
    lexStep mode byte rest =
      ⟨[.word (byte :: rest.takeWhile isIdentCont)], (rest.takeWhile isIdentCont).length + 1,
        .plain⟩ := by
  have hspace : isSpace byte = false := by
    simp [isSpace, ne_of_wide h (show 32 < 128 by decide),
      not_le_of_wide h (show 13 < 128 by decide)]
  have hident : isIdentStart byte := by simp [isIdentStart, h]
  simp [lexStep, hspace, hident, stepWord, markerMode_of_wide h,
    ne_of_wide h (show 45 < 128 by decide), ne_of_wide h (show 47 < 128 by decide),
    ne_of_wide h (show 59 < 128 by decide), ne_of_wide h (show 39 < 128 by decide),
    ne_of_wide h (show 34 < 128 by decide), ne_of_wide h (show 36 < 128 by decide)]

/-! ## One step -/

/-- Whether the scanner can go on past the lexeme. -/
def QueryLexeme.passes : QueryLexeme → Bool
  | .nul | .invalidUtf8 | .deepComment _ | .openComment _ | .openQuoted | .parameter
  | .openDollar => false
  | _ => true

/-- The words of a lexeme. -/
def QueryLexeme.letters (lexeme : QueryLexeme) (chunk : List UInt8) : List (List UInt8) :=
  match lexeme with
  | .word _ => [chunk]
  | _ => []

/-- A lexeme of the scanner and a step of the lexer that read alike. -/
structure LexStep.Agrees (step : LexStep) (lexeme : QueryLexeme) (chunk : List UInt8) : Prop where
  length : step.length = lexeme.length
  closed : ∀ token ∈ step.tokens, token.isOpen = false
  noParameter : .parameter ∉ step.tokens
  semicolon : .semicolon ∈ step.tokens ↔ lexeme = .semicolon
  letters : step.tokens.filterMap PgToken.letters = lexeme.letters chunk

/-- A token that is closed, no parameter, no semicolon and no word. -/
def PgToken.inert (token : PgToken) : Bool :=
  !token.isOpen && token != .parameter && token != .semicolon && token.letters.isNone

/-- Where the step says nothing the scanner looks at, only the lengths count. -/
theorem LexStep.Agrees.of_inert {step : LexStep} {lexeme : QueryLexeme} {chunk : List UInt8}
    (hlength : step.length = lexeme.length) (hinert : ∀ token ∈ step.tokens, token.inert)
    (hsemicolon : lexeme ≠ .semicolon) (hword : lexeme.letters chunk = []) :
    step.Agrees lexeme chunk := by
  simp only [PgToken.inert, Bool.and_eq_true, Bool.not_eq_true', bne_iff_ne] at hinert
  refine ⟨hlength, fun token h => (hinert token h).1.1.1, fun h => (hinert _ h).1.1.2 rfl,
    ⟨fun h => absurd rfl (hinert _ h).1.2, fun h => absurd h hsemicolon⟩, ?_⟩
  rw [hword, List.filterMap_eq_nil_iff]
  intro token h
  simpa using (hinert token h).2

theorem quotedLength_agrees {mode : LexMode} {quote : UInt8} {rest : List UInt8}
    (hquote : quote = 39 ∨ quote = 34)
    (hclean : ∀ token ∈ (stepQuoted mode quote rest).tokens, token.clean) :
    quotedLength (quote == 39 && mode.escapes) quote rest =
      quotedLength (quote == 39) quote rest := by
  obtain rfl | rfl := hquote
  · cases hmode : mode.escapes with
    | true => rfl
    | false =>
      refine (quotedLength_escapes_eq ?_).symm
      unfold stepQuoted at hclean
      cases hlex : quotedLength false 39 rest with
      | none => simp_all [PgToken.clean, evenRuns]
      | some n => simp_all [PgToken.clean, evenRuns]
  · rfl

theorem stepQuoted_agrees {mode : LexMode} {quote : UInt8} {rest chunk : List UInt8}
    (hquote : quote = 39 ∨ quote = 34) (hpass : (scanQuoted quote rest).passes)
    (hclean : ∀ token ∈ (stepQuoted mode quote rest).tokens, token.clean) :
    (stepQuoted mode quote rest).Agrees (scanQuoted quote rest) chunk := by
  have hagrees := quotedLength_agrees hquote hclean
  obtain ⟨hlast, hscan⟩ : (quote :: rest)[scanQuotedLength quote rest]? = some quote ∧
      scanQuoted quote rest = .quoted (scanQuotedLength quote rest + 1) := by
    simp only [scanQuoted, Nat.add_sub_cancel] at hpass ⊢
    split at hpass
    · rename_i h
      exact ⟨h, if_pos h⟩
    · cases hpass
  rw [scanQuotedLength_eq, ← hagrees] at hlast hscan
  rw [hscan]
  cases hlex : quotedLength (quote == 39 && mode.escapes) quote rest with
  | none =>
    -- an open quote passes only if it ends with its own mark, which is not clean
    rw [hlex, Option.getD_none] at hlast
    have hmark : (quote :: rest).getLast? = some quote := by
      rw [List.getLast?_eq_getElem?]
      simpa using hlast
    simp only [stepQuoted, hlex, List.mem_singleton, forall_eq] at hclean
    obtain rfl | rfl := hquote <;> simp_all [PgToken.clean]
  | some n =>
    refine .of_inert ?_ ?_ (by simp) rfl
    · simp [stepQuoted, hlex, QueryLexeme.length]
    · obtain rfl | rfl :=
        hquote <;> simp_all [stepQuoted, PgToken.inert, PgToken.isOpen, PgToken.letters]

theorem stepDollar_agrees {rest chunk : List UInt8}
    (hpass : ((scanDollar rest).getD .other).passes)
    (hclean : ∀ token ∈ (stepDollar rest).tokens, token.clean) :
    (stepDollar rest).Agrees ((scanDollar rest).getD .other) chunk := by
  unfold stepDollar scanDollar at *
  by_cases hdigit : rest.head?.any isDigit
  · rw [if_pos hdigit] at hpass
    cases hpass
  · rw [if_neg hdigit] at hpass hclean ⊢
    rw [if_neg hdigit]
    have hagrees : dollarDelimiter queryIsTagByte rest = dollarDelimiter isTagByte rest := by
      refine dollarDelimiter_agrees fun delimiter hd => ?_
      rw [hd] at hclean
      cases hfind : findDelimiter delimiter (rest.drop (delimiter.length - 1)) <;>
        simp_all [PgToken.clean]
    rw [hagrees] at hpass ⊢
    cases hd : dollarDelimiter isTagByte rest with
    | none =>
      exact .of_inert rfl (by simp [PgToken.inert, PgToken.isOpen, PgToken.letters]) (by simp) rfl
    | some delimiter =>
      cases hfind : findDelimiter delimiter (rest.drop (delimiter.length - 1)) with
      | none => simp [hd, hfind, QueryLexeme.passes] at hpass
      | some n =>
        simp only [Option.map_some, hfind, Option.getD_some]
        exact .of_inert rfl (by simp [PgToken.inert, PgToken.isOpen, PgToken.letters]) (by simp) rfl

theorem stepWord_agrees {byte : UInt8} {rest : List UInt8} (hstart : isScannedStart byte) :
    (stepWord byte rest).Agrees (.word ((rest.takeWhile queryIsIdentifierContinue).length + 1))
      ((byte :: rest).take ((rest.takeWhile queryIsIdentifierContinue).length + 1)) := by
  unfold stepWord
  split
  · rename_i mode hmarker
    simp only [takeWhile_of_markerMode hmarker]
    constructor <;> simp [QueryLexeme.length, PgToken.isOpen, PgToken.letters, QueryLexeme.letters]
  · rw [isIdentCont_eq_query]
    have htake := List.prefix_iff_eq_take.1 (rest.takeWhile_prefix queryIsIdentifierContinue)
    constructor <;>
      simp [QueryLexeme.length, PgToken.isOpen, PgToken.letters, scannedPart_of_start hstart,
        QueryLexeme.letters, ← htake]

/-- A lexeme that passes is plain ASCII, unless it is a character outside it. -/
theorem queryLexeme_of_passes {byte : UInt8} {rest : List UInt8}
    (hpass : (queryLexeme byte rest).passes) :
    (128 ≤ byte ∧ ∃ n, queryUtf8SequenceLength (byte :: rest) = some n ∧
      queryLexeme byte rest = .wide n) ∨ byte < 128 ∧ queryLexeme byte rest =
      if isSpace byte then .space
      else if byte = 45 ∧ rest.head? = some 45 then
        .comment ((rest.tail.takeWhile (!isNewline ·)).length + 2)
      else if byte = 47 ∧ rest.head? = some 42 then scanComment 1 2 rest.tail
      else if byte = 59 then .semicolon
      else if byte = 39 ∨ byte = 34 then scanQuoted byte rest
      else if byte = 36 then (scanDollar rest).getD .other
      else if queryIsIdentifierStart byte then
        .word ((rest.takeWhile queryIsIdentifierContinue).length + 1)
      else .other := by
  unfold queryLexeme at hpass ⊢
  split at hpass
  · cases hpass
  rename_i hnul
  simp only [if_neg hnul]
  split at hpass
  · cases hpass
  rename_i n hutf8
  by_cases hwide : 128 ≤ byte
  · exact .inl ⟨hwide, n, hutf8, if_pos hwide⟩
  · refine .inr ⟨UInt8.not_le.1 hwide, ?_⟩
    simp only [if_neg hwide]
    by_cases hdollar : byte = 36
    · subst hdollar
      simp only [if_pos]
      cases scanDollar rest <;> simp [queryIsIdentifierStart, isAlpha]
    · simp only [if_neg hdollar]

/-- A byte that continues a word, in ASCII and no dollar sign, begins one or stands alone. -/
theorem queryLexeme_of_identCont {byte : UInt8} {rest : List UInt8}
    (hpass : (queryLexeme byte rest).passes) (hcont : isIdentCont byte) (hascii : byte < 128)
    (hdollar : byte ≠ 36) : queryLexeme byte rest =
      if isScannedStart byte then .word ((rest.takeWhile queryIsIdentifierContinue).length + 1)
      else .other := by
  have hplain : isSpace byte = false ∧ byte ≠ 45 ∧ byte ≠ 47 ∧ byte ≠ 59 ∧ byte ≠ 39 ∧ byte ≠ 34 :=
    byte_induction (P := fun byte => isIdentCont byte → isSpace byte = false ∧ byte ≠ 45 ∧
      byte ≠ 47 ∧ byte ≠ 59 ∧ byte ≠ 39 ∧ byte ≠ 34) 128 (by decide) byte
      (UInt8.lt_iff_toNat_lt.1 hascii) hcont
  obtain ⟨hspace, hline, hblock, hsemi, hquote, hdouble⟩ := hplain
  obtain ⟨hwide, -⟩ | ⟨-, heq⟩ := queryLexeme_of_passes hpass
  · exact absurd hwide (UInt8.not_le.2 hascii)
  have hstart : isScannedStart byte = queryIsIdentifierStart byte := by
    simp [isScannedStart, hascii, isIdentStart, queryIsIdentifierStart]
  rw [heq, hstart]
  simp [hspace, hline, hblock, hsemi, hquote, hdouble, hdollar]

/-- A character outside ASCII is made of bytes outside ASCII. -/
theorem utf8_wide {byte : UInt8} {rest : List UInt8} {n : ℕ} (hwide : 128 ≤ byte)
    (h : queryUtf8SequenceLength (byte :: rest) = some n) :
    (rest.take (n - 1)).length = n - 1 ∧ 0 < n ∧ ∀ tail ∈ rest.take (n - 1), 128 ≤ tail := by
  have hlead : ¬ byte < 0x80 := UInt8.not_lt.2 hwide
  simp only [queryUtf8SequenceLength, if_neg hlead] at h
  obtain ⟨⟨length, high⟩, hshape, h⟩ := Option.bind_eq_some_iff.1 h
  have hpos : 0 < length := by
    split_ifs at hshape
    all_goals
      obtain ⟨rfl, -⟩ := Prod.mk.inj (Option.some.inj hshape)
      decide
  simp only at h
  split at h
  · cases h
  rename_i htail
  split at h
  · cases h
  obtain rfl : length = n := Option.some.inj h
  simp only [Bool.or_eq_true, decide_eq_true_eq, not_or, Nat.not_lt, Bool.not_eq_true',
    Bool.not_eq_false, List.all_eq_true] at htail
  refine ⟨Nat.le_antisymm (List.length_take_le _ _) htail.1, hpos, fun tail hmem => ?_⟩
  have := (isUtf8Tail_iff tail).1 (htail.2 tail hmem)
  exact UInt8.le_iff_toNat_le.2 this.1

/-- **A round within a word** reads the rest of it, from a letter in ASCII on, or passes over bytes
that continue it. -/
theorem queryLexeme_inWord {byte : UInt8} {rest : List UInt8}
    (hpass : (queryLexeme byte rest).passes) (hcont : isIdentCont byte)
    (hdollar : isScannedStart byte ∨ byte ≠ 36) :
    (isScannedStart byte ∧
      queryLexeme byte rest = .word ((rest.takeWhile queryIsIdentifierContinue).length + 1)) ∨
    ∃ n, n ≤ rest.length ∧ (queryLexeme byte rest).length = n + 1 ∧
      (∀ chunk, (queryLexeme byte rest).letters chunk = []) ∧
      ∀ b ∈ (byte :: rest).take (n + 1), isIdentCont b ∧ isScannedStart b = false := by
  have hplain (b : UInt8) (h : 128 ≤ b) : isIdentCont b ∧ isScannedStart b = false := by
    simp [isIdentCont, isIdentStart, isScannedStart, h, UInt8.not_lt.2 h]
  obtain ⟨hwide, n, hutf8, hlexeme⟩ | ⟨hascii, -⟩ := queryLexeme_of_passes hpass
  · obtain ⟨hlength, hpos, htails⟩ := utf8_wide hwide hutf8
    obtain ⟨m, rfl⟩ := Nat.exists_eq_add_one.2 hpos
    rw [hlexeme]
    refine .inr ⟨m, ?_, rfl, fun _ => rfl, List.forall_mem_cons.2 ⟨hplain byte hwide, ?_⟩⟩
    · simpa using hlength
    · exact fun b hmem => hplain b (htails b hmem)
  · have hnot : byte ≠ 36 := by
      obtain hstart | hne := hdollar
      · rintro rfl
        exact absurd hstart (by decide)
      · exact hne
    have hlexeme := queryLexeme_of_identCont hpass hcont hascii hnot
    cases hstart : isScannedStart byte with
    | true => exact .inl ⟨rfl, by rw [hlexeme, if_pos hstart]⟩
    | false =>
      rw [hlexeme, hstart]
      exact .inr ⟨0, Nat.zero_le _, rfl, fun _ => rfl, by simp [hcont, hstart]⟩

/-- **One step of the lexer and one round of the scanner read alike** in ASCII, where the scanner
passes and the tokens are clean. -/
theorem lexStep_agrees {mode : LexMode} {byte : UInt8} {rest : List UInt8} (hascii : byte < 128)
    (hpass : (queryLexeme byte rest).passes)
    (hclean : ∀ token ∈ (lexStep mode byte rest).tokens, token.clean) :
    (lexStep mode byte rest).Agrees (queryLexeme byte rest)
      ((byte :: rest).take (queryLexeme byte rest).length) := by
  obtain ⟨hwide, -⟩ | ⟨-, heq⟩ := queryLexeme_of_passes hpass
  · exact absurd hwide (UInt8.not_le.2 hascii)
  rw [heq] at hpass ⊢
  clear heq
  unfold lexStep at hclean ⊢
  by_cases hspace : isSpace byte
  · simp only [if_pos hspace]
    exact .of_inert rfl (by simp) (by simp) rfl
  simp only [if_neg hspace] at hpass hclean ⊢
  by_cases hline : byte = 45 ∧ rest.head? = some 45
  · simp only [if_pos hline]
    refine .of_inert ?_ (by simp) (by simp) rfl
    cases rest with
    | nil => simp at hline
    | cons next rest =>
      obtain rfl : next = 45 := by simpa using hline.2
      simp [QueryLexeme.length, isNewline]
  simp only [if_neg hline] at hpass hclean ⊢
  by_cases hblock : byte = 47 ∧ rest.head? = some 42
  · simp only [if_pos hblock] at hpass hclean ⊢
    obtain ⟨m, hm⟩ | ⟨m, hm⟩ | ⟨m, hm⟩ := scanComment_cases 1 2 rest.tail
    · obtain ⟨n, hn, rfl⟩ := commentLength_of_scanComment hm
      rw [hm, hn]
      exact .of_inert (Nat.add_comm n 2) (by simp) (by simp) rfl
    · simp [hm, QueryLexeme.passes] at hpass
    · simp [hm, QueryLexeme.passes] at hpass
  simp only [if_neg hblock] at hpass hclean ⊢
  by_cases hsemi : byte = 59
  · simp only [if_pos hsemi]
    constructor <;> simp [QueryLexeme.length, PgToken.isOpen, PgToken.letters, QueryLexeme.letters]
  simp only [if_neg hsemi] at hpass hclean ⊢
  by_cases hquote : byte = 39 ∨ byte = 34
  · simp only [if_pos hquote] at hpass hclean ⊢
    exact stepQuoted_agrees hquote hpass hclean
  simp only [if_neg hquote] at hpass hclean ⊢
  by_cases hdollar : byte = 36
  · simp only [if_pos hdollar] at hpass hclean ⊢
    exact stepDollar_agrees hpass hclean
  simp only [if_neg hdollar] at hpass hclean ⊢
  have hstart : queryIsIdentifierStart byte = isIdentStart byte := rfl
  simp only [hstart]
  by_cases hident : isIdentStart byte
  · simp only [if_pos hident]
    exact stepWord_agrees (by simp [isScannedStart, hascii, hident])
  simp only [if_neg hident]
  refine .of_inert ?_ ?_ (by simp) rfl
  · split <;> rfl
  · split <;> simp [PgToken.inert, PgToken.isOpen, PgToken.letters]

end Vps
