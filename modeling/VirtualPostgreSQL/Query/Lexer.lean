import Mathlib.Data.List.Basic
import Mathlib.Data.List.TakeWhile
import VirtualPostgreSQL.Machinery.Ascii

/-!
# Query/Lexer — PostgreSQL's lexer

The token classes of PostgreSQL's lexical structure that decide where text is code: blanks, line
comments and nested block comments, string constants under `standard_conforming_strings = on` with
their markers (`E`, `B`, `X`, `N`, `U&`) and continuation lines, quoted identifiers, dollar-quoted
constants, positional parameters and words.  Every other byte is a token of its own, digits
included: a number decides no boundary.

The lexer takes one step at a time.  The marker of a constant is a step of its own, and what it says
about the constant is remembered in the `LexMode`, as is a constant with escapes that the next line
may continue.
-/

namespace Vps

open Machinery

/-! ## Tokens -/

/-- A token of the statement; the `open…` ones run to the end of the text without their
terminator. -/
inductive PgToken
  | word (text : List UInt8)
  /-- The letter that marks the constant after it. -/
  | marker (letter : UInt8)
  /-- A string constant: whether a backslash escapes, and its text from quote to quote. -/
  | literal (escapes : Bool) (text : List UInt8)
  /-- A quoted identifier. -/
  | identifier (text : List UInt8)
  /-- A dollar-quoted constant, by its delimiter. -/
  | dollar (delimiter : List UInt8)
  | parameter
  | semicolon
  | other (byte : UInt8)
  | openLiteral (escapes : Bool) (text : List UInt8)
  | openIdentifier (text : List UInt8)
  | openDollar (delimiter : List UInt8)
  | openComment
  deriving DecidableEq, Repr

/-- What the lexer remembers between two steps. -/
inductive LexMode
  | plain
  /-- After a constant with escapes, with whether a line has ended since. -/
  | afterEscapes (newline : Bool)
  /-- Before the quote of a marked constant. -/
  | marked (escapes : Bool)
  /-- Before the ampersand of `U&`. -/
  | unicode
  deriving DecidableEq, Repr

/-- One step: what is emitted, how many bytes are read, and the mode after it. -/
structure LexStep where
  tokens : List PgToken
  length : ℕ
  mode : LexMode
  deriving DecidableEq, Repr

/-! ## Letters -/

/-- `[A-Za-z\200-\377_]` -/
def isIdentStart (byte : UInt8) : Bool := byte == 95 || 128 ≤ byte || isAlpha byte

/-- `[A-Za-z\200-\377_0-9$]` -/
def isIdentCont (byte : UInt8) : Bool := isIdentStart byte || isDigit byte || byte == 36

/-- `[A-Za-z\200-\377_0-9]` -/
def isTagByte (byte : UInt8) : Bool := isIdentStart byte || isDigit byte

/-- The end of a line. -/
def isNewline (byte : UInt8) : Bool := byte == 10 || byte == 13

/-! ## Where tokens end -/

/-- From inside quotes through the closing quote; a doubled quote, and with `escapes` a backslash,
stands for two bytes of the text. -/
def quotedLength (escapes : Bool) (quote : UInt8) : List UInt8 → Option ℕ
  | [] => none
  | [byte] => if byte = quote then some 1 else none
  | byte :: next :: rest =>
    if byte = quote then
      if next = quote then (quotedLength escapes quote rest).map (· + 2) else some 1
    else if escapes && byte == 92 then (quotedLength escapes quote rest).map (· + 2)
    else (quotedLength escapes quote (next :: rest)).map (· + 1)

/-- From inside a block comment of the given depth through its end. -/
def commentLength : ℕ → List UInt8 → Option ℕ
  | 0, _ => some 0
  | _ + 1, [] => none
  | _ + 1, [_] => none
  | depth + 1, byte :: next :: rest =>
    if byte = 47 ∧ next = 42 then (commentLength (depth + 2) rest).map (· + 2)
    else if byte = 42 ∧ next = 47 then (commentLength depth rest).map (· + 2)
    else (commentLength (depth + 1) (next :: rest)).map (· + 1)

/-- The delimiter that starts after a dollar sign: a tag of the given letters and a dollar sign. -/
def dollarDelimiter (isTag : UInt8 → Bool) (rest : List UInt8) : Option (List UInt8) :=
  let tag := rest.takeWhile isTag
  match rest.drop tag.length with
  | 36 :: _ => some (36 :: tag ++ [36])
  | _ => none

/-- Where the delimiter occurs next. -/
def findDelimiter (delimiter : List UInt8) : List UInt8 → Option ℕ
  | [] => if delimiter = [] then some 0 else none
  | byte :: rest =>
    if delimiter.isPrefixOf (byte :: rest) then some 0
    else (findDelimiter delimiter rest).map (· + 1)

/-! ## The lexer -/

/-- A blank after a constant with escapes: the next line may continue it. -/
def LexMode.blank (mode : LexMode) (byte : UInt8) : LexMode :=
  match mode with
  | .afterEscapes newline => .afterEscapes (newline || isNewline byte)
  | mode => mode

/-- Whether a backslash escapes in the constant that starts here. -/
def LexMode.escapes : LexMode → Bool
  | .afterEscapes newline => newline
  | .marked escapes => escapes
  | _ => false

/-- A quoted constant or identifier at its opening quote. -/
def stepQuoted (mode : LexMode) (quote : UInt8) (rest : List UInt8) : LexStep :=
  let escapes := quote == 39 && mode.escapes
  match quotedLength escapes quote rest with
  | none =>
    { tokens := [if quote = 39 then .openLiteral escapes (quote :: rest)
        else .openIdentifier (quote :: rest)]
      length := rest.length + 1
      mode := .plain }
  | some n =>
    { tokens := [if quote = 39 then .literal escapes (quote :: rest.take n)
        else .identifier (quote :: rest.take n)]
      length := n + 1
      mode := if escapes then .afterEscapes false else .plain }

/-- A dollar sign. -/
def stepDollar (rest : List UInt8) : LexStep :=
  if rest.head?.any isDigit then
    ⟨[.parameter], (rest.takeWhile isDigit).length + 1, .plain⟩
  else match dollarDelimiter isTagByte rest with
  | none => ⟨[.other 36], 1, .plain⟩
  | some delimiter =>
    match findDelimiter delimiter (rest.drop (delimiter.length - 1)) with
    | none => ⟨[.openDollar delimiter], rest.length + 1, .plain⟩
    | some n => ⟨[.dollar delimiter], 2 * delimiter.length + n, .plain⟩

/-- The mode after a letter that marks a constant: `E'`, `B'`, `X'`, `N'`, `U&'`, `U&"`. -/
def markerMode (byte : UInt8) (rest : List UInt8) : Option LexMode :=
  let letter := toLower byte
  match rest with
  | 39 :: _ =>
    if letter = 101 then some (.marked true)
    else if letter = 98 ∨ letter = 120 ∨ letter = 110 then some (.marked false)
    else none
  | 38 :: quote :: _ => if letter = 117 ∧ (quote = 39 ∨ quote = 34) then some .unicode else none
  | _ => none

/-- The word at a letter, or the marker of a constant. -/
def stepWord (byte : UInt8) (rest : List UInt8) : LexStep :=
  match markerMode byte rest with
  | some mode => ⟨[.marker byte], 1, mode⟩
  | none =>
    let tail := rest.takeWhile isIdentCont
    ⟨[.word (byte :: tail)], tail.length + 1, .plain⟩

/-- **One step of the lexer** at the given byte. -/
def lexStep (mode : LexMode) (byte : UInt8) (rest : List UInt8) : LexStep :=
  if isSpace byte then ⟨[], 1, mode.blank byte⟩
  else if byte = 45 ∧ rest.head? = some 45 then
    ⟨[], (rest.takeWhile (!isNewline ·)).length + 1, mode⟩
  else if byte = 47 ∧ rest.head? = some 42 then
    match commentLength 1 rest.tail with
    | none => ⟨[.openComment], rest.length + 1, .plain⟩
    | some n => ⟨[], n + 2, .plain⟩
  else if byte = 59 then ⟨[.semicolon], 1, .plain⟩
  else if byte = 39 ∨ byte = 34 then stepQuoted mode byte rest
  else if byte = 36 then stepDollar rest
  else if isIdentStart byte then stepWord byte rest
  else if mode = .unicode then ⟨[], 1, .marked false⟩
  else ⟨[.other byte], 1, .plain⟩

/-- The lexer from a place on, after the given number of bytes that were already read. -/
def lexFrom : List UInt8 → ℕ → LexMode → List PgToken
  | [], _, _ => []
  | _ :: rest, skip + 1, mode => lexFrom rest skip mode
  | byte :: rest, 0, mode =>
    let step := lexStep mode byte rest
    step.tokens ++ lexFrom rest (step.length - 1) step.mode

/-- **The tokens of a text.** -/
def pgLex (text : List UInt8) : List PgToken := lexFrom text 0 .plain

/-! ## Delimiters -/

/-- A delimiter is a tag and a dollar sign. -/
theorem dollarDelimiter_eq_some_iff {isTag : UInt8 → Bool} (h36 : isTag 36 = false)
    {text delimiter : List UInt8} :
    dollarDelimiter isTag text = some delimiter ↔
      ∃ tag post, text = tag ++ 36 :: post ∧ (∀ byte ∈ tag, isTag byte) ∧
        delimiter = 36 :: tag ++ [36] := by
  constructor
  · intro h
    simp only [dollarDelimiter] at h
    split at h
    · rename_i post hpost
      refine ⟨text.takeWhile isTag, post, ?_, fun byte hb => List.mem_takeWhile_imp hb, ?_⟩
      · have hdrop : text.drop (text.takeWhile isTag).length = text.dropWhile isTag := by
          have : (text.takeWhile isTag ++ text.dropWhile isTag).drop (text.takeWhile isTag).length =
            text.dropWhile isTag := List.drop_left
          rwa [List.takeWhile_append_dropWhile] at this
        rw [← hpost, hdrop, List.takeWhile_append_dropWhile]
      · simpa using h.symm
    · cases h
  · rintro ⟨tag, post, rfl, htag, rfl⟩
    have : (tag ++ 36 :: post).takeWhile isTag = tag := by
      rw [List.takeWhile_append_of_pos htag, List.takeWhile_cons_of_neg (by simp [h36])]
      simp
    simp [dollarDelimiter, this]

theorem isTagByte_dollar : isTagByte 36 = false := by decide

end Vps
